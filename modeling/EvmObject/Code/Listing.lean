import EvmObject.Bytes.Hex
import EvmObject.Code.Analysis

/-!
# Listing of code

One line per item: the offset, the name, the operand, and where a jump or a call leads. A byte that
is not enabled and an operand that is cut off have lines of their own, so every byte string can be
listed.
-/

namespace EvmObject.Code

namespace Item

/-- Where a jump or a call leads, as listed behind its operand. -/
def destination (item : Item) (op : Opcode) : String :=
  if op.isRelativeJump then
    s!" ({Text.signedDecimal item.offset} -> {Text.hexPattern 4 item.target})"
  else if op.isCall then
    s!" (section {(Bytes.readU16? item.immediate).getD 0})"
  else ""

/-- The operand bytes, as listed behind a name. -/
def operand (item : Item) : String :=
  if item.immediate.isEmpty then "" else s!" 0x{Hex.encode item.immediate}"

/-- The line of an item behind its offset. -/
def text (item : Item) : String :=
  match item.opcode? with
  | none => s!"Unknown opcode: 0x{Text.byteUpper item.byte}"
  | some op =>
    if item.isTruncated then s!"{op.info.name} Malformed code: immediate out of bounds"
    else s!"{op.info.name}{item.operand}{item.destination op}"

/-- The line of an item. -/
def line (item : Item) : String :=
  s!"{Text.hexWide 4 item.pc}: {item.text}"

end Item

/-- The lines of a code section, one per item. -/
def lines (code : Bytes) : List String :=
  (items code).map Item.line

/-- The listing of a code section; every line ends with a line feed. -/
def listing (code : Bytes) : String :=
  String.join ((lines code).map (·.push '\n'))

end EvmObject.Code
